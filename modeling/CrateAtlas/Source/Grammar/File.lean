import CrateAtlas.Source.Grammar.Item

/-!
The whole grammar, and the syntax of a source file as text.
-/

namespace CrateAtlas.Source

namespace Phrase

def rule (rules : Rules) : Rules
  | .expr structs => rules.expr structs
  | .unary structs => rules.unary structs
  | .operators left structs base => rules.operators left structs base
  | .statementExpr => rules.statementExpr
  | .type plus => rules.type plus
  | .bound captures consts => rules.bound captures consts
  | .genericParam => rules.genericParam
  | .pattern => rules.pattern
  | .statements => rules.statements
  | .item => rules.item
  | .fields => rules.fields
  | .useTree roots => rules.useTree roots

/-- Reads a phrase in which phrases nest less deeply than the fuel says. -/
def read : Nat → Rules
  | 0 => fun _ => failure
  | fuel + 1 => rule (read fuel)

/-- More than the depth to which phrases nest in a text of some length: a phrase takes a token at
the latest in the third phrase inside it. -/
def depthBound (length : Nat) : Nat :=
  8 * (length + 2)

end Phrase

/-- The text behind a first line that names an interpreter. Such a line starts with `#!`, but not
with an inner attribute. -/
def dropInterpreterLine (text : List Char) : List Char :=
  match text with
  | '#' :: '!' :: rest =>
    match skipSpace (rest.length + 1) rest with
    | '[' :: _ => text
    | _ => rest.dropWhile (· != '\n')
  | _ => text

namespace SourceFile

def read (rules : Rules) : Parse SourceFile := do
  let _ ← rules.innerAttributes
  return ⟨← Parse.whileAt (fun tokens => !tokens.isEmpty) (rules .item)⟩

def parse? (text : String) : Option SourceFile := do
  let chars := text.toList
  let tokens ← lex (dropInterpreterLine (dropByteOrderMark chars))
  let (file, rest) ← read (Phrase.read (Phrase.depthBound chars.length)) tokens
  if rest.isEmpty then some file else none

/-- Whether a file only declares foreign functions: it holds such declarations and import
statements, and nothing else. -/
def isDeclarationOnly (file : SourceFile) : Bool :=
  let isForeign : Construct → Bool
    | .node .foreignBlock _ _ => true
    | _ => false
  let isUse : Construct → Bool
    | .useItem _ _ => true
    | _ => false
  file.items.any isForeign && file.items.all fun item => isForeign item || isUse item

end SourceFile

namespace UseTree

def parse? (text : String) : Option UseTree := do
  let chars := text.toList
  let tokens ← lex chars
  let (tree, rest) ← Phrase.read (Phrase.depthBound chars.length) (.useTree false) tokens
  if rest.isEmpty then tree else none

end UseTree

end CrateAtlas.Source
