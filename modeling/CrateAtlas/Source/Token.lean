import CrateAtlas.Text.Identifier

/-!
Tokens of Rust source text. Brackets are matched already: a group holds the tokens between its
delimiters.
-/

namespace CrateAtlas.Source

inductive Delimiter where
  | parenthesis | bracket | brace
  deriving DecidableEq, Repr

inductive Literal where
  | string
  /-- An integer, and whether a suffix follows its digits. -/
  | integer (value : Nat) (suffixed : Bool)
  /-- A number with a point or an exponent, as written. -/
  | float (text : String)
  /-- Characters, bytes, strings of bytes and strings for foreign code. -/
  | other
  deriving DecidableEq, Repr

def isWordChar (c : Char) : Bool :=
  Text.isIdentContinue c || c == '#'

/-- An identifier or keyword; the mark of a raw identifier is part of it. -/
structure Word where
  text : String
  filled : text ≠ ""
  written : text.toList.all isWordChar = true
  deriving DecidableEq, Repr

inductive Token where
  | ident (name : Word)
  /-- A punctuation character, and whether another one follows it directly. -/
  | punct (c : Char) (joint : Bool)
  | lifetime (name : String)
  | literal (value : Literal)
  | group (delimiter : Delimiter) (content : List Token)
  deriving Repr

namespace Delimiter

def ofOpening? : Char → Option Delimiter
  | '(' => some parenthesis
  | '[' => some bracket
  | '{' => some brace
  | _ => none

def ofClosing? : Char → Option Delimiter
  | ')' => some parenthesis
  | ']' => some bracket
  | '}' => some brace
  | _ => none

end Delimiter

def reservedWords : List String :=
  ["_", "abstract", "as", "async", "await", "become", "box", "break", "const", "continue", "crate",
   "do", "dyn", "else", "enum", "extern", "false", "final", "fn", "for", "if", "impl", "in", "let",
   "loop", "macro", "match", "mod", "move", "mut", "override", "priv", "pub", "ref", "return",
   "Self", "self", "static", "struct", "super", "trait", "true", "try", "type", "typeof", "unsafe",
   "unsized", "use", "virtual", "where", "while", "yield"]

def isReserved (name : String) : Bool :=
  reservedWords.contains name

def docAttribute (inner : Bool) : List Token :=
  let content := [.ident ⟨"doc", by decide, by decide⟩, .punct '=' false, .literal .string]
  [.punct '#' false] ++ (if inner then [.punct '!' false] else []) ++ [.group .bracket content]

end CrateAtlas.Source
