import CrateAtlas.Analysis
import CrateAtlas.Report.View

/-!
The arguments of the command line. The names of options are text; a path need not be.
-/

namespace CrateAtlas.CommandLine

structure OptionForm where
  long : String
  short : Option Char
  takesValue : Bool
  deriving DecidableEq, Repr, Inhabited

inductive Token where
  | flag (name : String)
  | setting (name : String) (value : Bytes)
  | word (bytes : Bytes)
  | help
  | bad
  deriving DecidableEq, Repr, Inhabited

inductive Interruption where
  | usage
  | help
  deriving DecidableEq, Repr

structure AnalyzeCommand where
  path : Path := "."
  options : AnalysisOptions := {}
  output : Path := "importgraph.json"
  summary : Bool := false
  deriving DecidableEq, Repr, Inhabited

structure ShowCommand where
  view : View
  data : Path
  deriving DecidableEq, Repr

inductive Command where
  | analyze (command : AnalyzeCommand)
  | display (command : ShowCommand)
  deriving DecidableEq, Repr

abbrev dash : UInt8 := 0x2D

abbrev equalsSign : UInt8 := 0x3D

def isValue (argument : Bytes) : Bool :=
  argument == [dash] || argument.head? != some dash

/-- The options in an argument with one dash, and the last of them if its value is to follow. -/
def cluster (forms : List OptionForm) : Bytes → List Token × Option String
  | [] => ([], none)
  | byte :: rest =>
    match forms.find? (·.short.map Char.toUInt8 == some byte) with
    | some form =>
      if form.takesValue then
        if rest.isEmpty then ([], some form.long)
        else
          let value := if rest.head? = some equalsSign then rest.tail else rest
          ([.setting form.long value], none)
      else
        let (tokens, pending) := cluster forms rest
        (.flag form.long :: tokens, pending)
    | none => ([if byte = 'h'.toUInt8 then .help else .bad], none)

def longOption (forms : List OptionForm) (text : Bytes) : List Token × Option String :=
  let name := text.takeWhile (· != equalsSign)
  let value? := (text.dropWhile (· != equalsSign)).tail?
  match forms.find? (Bytes.ofText ·.long == name), value? with
  | some form, some value => ([if form.takesValue then .setting form.long value else .bad], none)
  | some form, none => if form.takesValue then ([], some form.long) else ([.flag form.long], none)
  | none, none => ([if name = "help" then .help else .bad], none)
  | none, some _ => ([.bad], none)

def classify (forms : List OptionForm) (argument : Bytes) : List Token × Option String :=
  if argument.head? = some dash ∧ argument ≠ [dash] then
    if argument[1]? = some dash then longOption forms (argument.drop 2) else cluster forms argument.tail
  else ([.word argument], none)

/-- What arguments stand for. After two dashes alone, all of them are words. -/
def tokens (forms : List OptionForm) : List Bytes → List Token
  | [] => []
  | argument :: rest =>
    if argument = "--" then rest.map .word
    else
      let (found, pending) := classify forms argument
      match pending, rest with
      | none, rest => found ++ tokens forms rest
      | some _, [] => found ++ [.bad]
      | some name, value :: rest =>
        if isValue value then found ++ .setting name value :: tokens forms rest else found ++ [.bad]

/-- A number of at most 64 bits, perhaps with a plus. -/
def number? (text : String) : Option Nat :=
  let digits : List Char :=
    match text.toList with
    | '+' :: digits => digits
    | digits => digits
  let value : Nat := digits.foldl (fun value c => value * 10 + (c.toNat - '0'.toNat)) 0
  if !digits.isEmpty ∧ digits.all Char.isDigit ∧ value < Nat.pow 2 64 then some value else none

def path? (bytes : Bytes) : Option Path :=
  if bytes.isEmpty then none else some ⟨bytes⟩

structure Grammar (α : Type) where
  flag : α → String → Option α
  setting : α → String → Bytes → Option α
  word : α → Bytes → Option α

namespace Grammar

variable {α : Type}

/-- Takes note of a token. No option may occur twice, and there is a place for one word. -/
def step (grammar : Grammar α) (draft : α × List String) (token : Token) :
    Except Interruption (α × List String) :=
  match token with
  | .flag name => note name (grammar.flag draft.1 name)
  | .setting name value => note name (grammar.setting draft.1 name value)
  | .word bytes => note "" (grammar.word draft.1 bytes)
  | .help => .error .help
  | .bad => .error .usage
where
  note (name : String) : Option α → Except Interruption (α × List String)
    | some next => if draft.2.contains name then .error .usage else .ok (next, name :: draft.2)
    | none => .error .usage

def gather (grammar : Grammar α) (start : α) (tokens : List Token) : Except Interruption α :=
  (tokens.foldlM grammar.step (start, [])).map (·.1)

end Grammar

namespace AnalyzeCommand

def forms : List OptionForm :=
  [⟨"entry", none, true⟩, ⟨"manifest-path", none, true⟩, ⟨"coverage", none, true⟩, ⟨"no-git", none, false⟩,
   ⟨"git-months", none, true⟩, ⟨"output", some 'o', true⟩, ⟨"config", some 'c', true⟩,
   ⟨"exclude-tests", none, false⟩, ⟨"nested-depth", none, false⟩, ⟨"jobs", some 'j', true⟩,
   ⟨"sequential", none, false⟩, ⟨"summary", some 's', false⟩, ⟨"unreached", none, false⟩,
   ⟨"verbose", some 'v', false⟩, ⟨"timing", none, false⟩]

/-- Sets a flag. Some of them only decide how an analysis works, not what it gives. -/
def flag (command : AnalyzeCommand) : String → Option AnalyzeCommand
  | "no-git" => some { command with options.noHistory := true }
  | "exclude-tests" => some { command with options.excludeTests := true }
  | "nested-depth" => some { command with options.depthMode := some .nested }
  | "unreached" => some { command with options.listUnreached := true }
  | "summary" => some { command with summary := true }
  | "sequential" | "verbose" | "timing" => some command
  | _ => none

def setting (command : AnalyzeCommand) (name : String) (value : Bytes) : Option AnalyzeCommand := do
  match name with
  | "entry" => return { command with options.entry := some (← path? value) }
  | "manifest-path" => return { command with options.manifest := some (← path? value) }
  | "coverage" => return { command with options.coverage := some (← path? value) }
  | "config" => return { command with options.config := some (← path? value) }
  | "git-months" => return { command with options.months := some (← value.text?.bind number?) }
  | "output" => return { command with output := ← path? value }
  | "jobs" => (value.text?.bind number?).map fun _ => command
  | _ => none

def word (command : AnalyzeCommand) (bytes : Bytes) : Option AnalyzeCommand :=
  (path? bytes).map fun path => { command with path }

def ofArguments (arguments : List Bytes) : Except Interruption AnalyzeCommand :=
  Grammar.gather ⟨flag, setting, word⟩ {} (tokens forms arguments)

end AnalyzeCommand

namespace ShowCommand

def forms : List OptionForm :=
  [⟨"data", none, true⟩]

def ofArguments (arguments : List Bytes) : Except Interruption ShowCommand := do
  let grammar : Grammar (Option View × Path) :=
    { flag := fun _ _ => none
      setting := fun draft _ value => (path? value).map fun path => (draft.1, path)
      word := fun draft bytes => (bytes.text?.bind View.ofName?).map fun view => (some view, draft.2) }
  let (view, data) ← grammar.gather (none, "importgraph.json") (tokens forms arguments)
  match view with
  | some view => return ⟨view, data⟩
  | none => throw .usage

end ShowCommand

namespace Command

def asksHelp (argument : Bytes) : Bool :=
  argument == "--help" || Bytes.ofText "-h" <+: argument

def asksVersion (argument : Bytes) : Bool :=
  argument == "--version" || Bytes.ofText "-V" <+: argument

def helpRequests : List (List Bytes) :=
  [["help"], ["help", "importgraph"], ["importgraph", "help"], ["importgraph", "help", "analyze"],
   ["importgraph", "help", "show"]]

def ofArguments (arguments : List Bytes) : Except Interruption Command :=
  if helpRequests.contains arguments then .error .help
  else
    match arguments with
    | [] => .error .usage
    | program :: rest =>
      if program = "importgraph" then
        match rest with
        | [] => .error .usage
        | command :: rest =>
          if command = "analyze" then .analyze <$> AnalyzeCommand.ofArguments rest
          else if command = "show" then .display <$> ShowCommand.ofArguments rest
          else .error (if asksHelp command then .help else .usage)
      else .error (if asksHelp program || asksVersion program then .help else .usage)

end Command

end CrateAtlas.CommandLine
