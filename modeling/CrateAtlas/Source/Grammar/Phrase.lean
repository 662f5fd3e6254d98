import CrateAtlas.Source.Construct
import CrateAtlas.Source.Parse

/-!
The phrases of the grammar that refer to one another, and the readers of attributes, visibilities
and names that all of them use. A rule reads one phrase and is given a reader of the phrases inside
it, so that the grammar is a set of plain functions.
-/

namespace CrateAtlas.Source

inductive Precedence where
  | jump | assign | range | either | both | comparison | bitOr | bitXor | bitAnd | shift | sum
  | product | cast
  deriving DecidableEq, Repr

namespace Precedence

def rank : Precedence → Nat
  | jump => 0 | assign => 1 | range => 2 | either => 3 | both => 4 | comparison => 5 | bitOr => 6
  | bitXor => 7 | bitAnd => 8 | shift => 9 | sum => 10 | product => 11 | cast => 12

end Precedence

inductive Phrase where
  /-- An expression. Where `structs` is false, a brace after a path is not a struct literal. -/
  | expr (structs : Bool)
  | unary (structs : Bool)
  /-- The operators behind a left operand that bind at least as tightly as `base`. -/
  | operators (left : Construct) (structs : Bool) (base : Precedence)
  /-- An expression in statement position, which ends behind a block. -/
  | statementExpr
  /-- A type. Where `plus` is false, no bounds are added with `+`. -/
  | type (plus : Bool)
  /-- A bound of a type, where lists of captured parameters or `const` may be allowed. -/
  | bound (captures consts : Bool)
  | genericParam
  | pattern
  | statements
  | item
  | fields
  /-- What an import statement imports; nothing if it holds a path that starts with `::`, which may
  occur only if `roots` is true. -/
  | useTree (roots : Bool)

abbrev Phrase.Result : Phrase → Type
  | .statements | .fields => List Construct
  | .useTree _ => Option UseTree
  | _ => Construct

abbrev Rules := (phrase : Phrase) → Parse phrase.Result

namespace Rules

open Parse

variable (rules : Rules)

/-- Names with `::` between them. An empty name stands first if the path starts with `::`. -/
def plainPath : Parse (List String) := do
  let global ← mark? "::"
  let segment : Parse String := do
    let tokens ← get
    if atIdent tokens || atAnyWord ["super", "self", "Self", "crate"] tokens then name else failure
  let first ← segment
  let rest ← whileAt (atMark "::") do
    mark "::"
    segment
  return (if global then [""] else []) ++ first :: rest

def attributeBody : Parse Construct := do
  let path ← if ← word? "unsafe" then pure ["unsafe"] else plainPath
  match ← get with
  | .group _ content :: rest =>
    set rest
    return .plainAttribute path content
  | _ =>
    if ← mark? "=" then
      let tokens ← get
      if atMark "#" tokens && atGroup .bracket tokens.tail then failure
      return .valueAttribute path (← rules (.expr true))
    return .plainAttribute path []

def outerAttributes : Parse (List Construct) :=
  whileAt (atMark "#") do
    mark "#"
    inside .bracket rules.attributeBody

def innerAttributes : Parse (List Construct) :=
  whileAt (fun tokens => atMark "#" tokens && atMark "!" tokens.tail) do
    mark "#"
    mark "!"
    inside .bracket rules.attributeBody

def block : Parse (List Construct × List Construct) :=
  inside .brace do
    let attrs ← rules.innerAttributes
    return (attrs, ← rules .statements)

def plainBlock : Parse (List Construct) :=
  inside .brace (rules .statements)

end Rules

def visibility : Parse Bool := do
  if !(← Parse.word? "pub") then return false
  match ← get with
  | .group .parenthesis content :: rest =>
    if atAnyWord ["crate", "self", "super"] content then
      if content.tail.isEmpty then set rest
    else if atWord "in" content then
      let _ ← Rules.plainPath.all content.tail
      set rest
  | _ => pure ()
  return true

def atBang (tokens : List Token) : Bool :=
  atMarkNot "!" ["!="] tokens

end CrateAtlas.Source
