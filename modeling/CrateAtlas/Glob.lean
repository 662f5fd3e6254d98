import CrateAtlas.Text.Marks

/-!
Patterns for paths. `?` stands for one character, `*` for any characters, `[…]` for one of some
characters, and `**` for any directories. Separators are characters like any other, except for `**`.
-/

namespace CrateAtlas

inductive GlobRange where
  | single (c : Char)
  | span (first last : Char)
  deriving DecidableEq, Repr

inductive GlobToken where
  | char (c : Char)
  | anyChar
  | oneOf (ranges : List GlobRange)
  | noneOf (ranges : List GlobRange)
  | anySequence
  | anyDirectories
  deriving DecidableEq, Repr

inductive GlobFault where
  | wildcards
  | recursion
  | range
  deriving DecidableEq, Repr

structure GlobError where
  position : Nat
  fault : GlobFault
  deriving DecidableEq, Repr

namespace GlobError

def message (error : GlobError) : String :=
  let reason :=
    match error.fault with
    | .wildcards => "wildcards are either regular `*` or recursive `**`"
    | .recursion => "recursive wildcards must form a single path component"
    | .range => "invalid range pattern"
  "Pattern syntax error near position " ++ toString error.position ++ ": " ++ reason

end GlobError

structure Glob where
  text : String
  tokens : List GlobToken
  deriving DecidableEq, Repr, Inhabited

namespace GlobRange

def contains (range : GlobRange) (c : Char) : Bool :=
  match range with
  | single d => c == d
  | span first last => decide (first ≤ c) && decide (c ≤ last)

/-- The characters in brackets. A `-` between two characters makes a span. -/
def ofChars : List Char → List GlobRange
  | a :: '-' :: b :: rest => span a b :: ofChars rest
  | a :: rest => single a :: ofChars rest
  | [] => []

end GlobRange

namespace Glob

/-- The characters up to a closing bracket that is not the first, and what follows the bracket. -/
def bracketed? : List Char → Option (List Char × List Char)
  | [] => none
  | first :: rest =>
    match rest.dropWhile (· != ']') with
    | [] => none
    | _ :: after => some (first :: rest.takeWhile (· != ']'), after)

def addDirectories (tokens : List GlobToken) : List GlobToken :=
  if decide (1 < tokens.length) && tokens.head? == some .anyDirectories then tokens
  else .anyDirectories :: tokens

def startsComponent : Option Char → Bool
  | none => true
  | some c => c == '/'

/-- Reads the rest of a pattern behind a character. The tokens are gathered in reverse. The fuel is
more than the length of the rest. -/
def compileFrom : Nat → Nat → Option Char → List GlobToken → List Char →
    Except GlobError (List GlobToken)
  | 0, _, _, tokens, _ => .ok tokens.reverse
  | _ + 1, _, _, tokens, [] => .ok tokens.reverse
  | fuel + 1, position, before, tokens, c :: rest =>
    match c with
    | '?' => compileFrom fuel (position + 1) (some c) (.anyChar :: tokens) rest
    | '*' =>
      let count := 1 + (rest.takeWhile (· == '*')).length
      let after := rest.dropWhile (· == '*')
      if count = 1 then compileFrom fuel (position + 1) (some c) (.anySequence :: tokens) after
      else if count = 2 then
        if startsComponent before then
          match after with
          | [] => compileFrom fuel (position + 2) (some c) (addDirectories tokens) []
          | '/' :: after =>
            compileFrom fuel (position + 3) (some '/') (addDirectories tokens) after
          | _ => .error ⟨position + 2, .recursion⟩
        else .error ⟨position - 1, .recursion⟩
      else .error ⟨position + 2, .wildcards⟩
    | '[' =>
      let (negated, inner) :=
        match rest with
        | '!' :: inner => (true, inner)
        | inner => (false, inner)
      match bracketed? inner with
      | none => .error ⟨position, .range⟩
      | some (chars, after) =>
        let ranges := GlobRange.ofChars chars
        let token := if negated then GlobToken.noneOf ranges else .oneOf ranges
        let length := chars.length + (if negated then 3 else 2)
        compileFrom fuel (position + length) (some ']') (token :: tokens) after
    | _ => compileFrom fuel (position + 1) (some c) (.char c :: tokens) rest

def compile (text : String) : Except GlobError Glob :=
  (compileFrom (text.length + 1) 0 none [] text.toList).map fun tokens => ⟨text, tokens⟩

/-- Where a text may be after any characters. A position is marked if the tokens before lead there. -/
def afterSequence : Bool → List Bool → List Bool
  | _, [] => []
  | reached, mark :: marks => (reached || mark) :: afterSequence (reached || mark) marks

/-- Where a text may be after any directories: where it was, behind any separator, and at the end. -/
def afterDirectories : Bool → Bool → List Char → List Bool → List Bool
  | reached, behind, c :: text, mark :: marks =>
    (mark || (reached && behind)) :: afterDirectories (reached || mark) (c == '/') text marks
  | reached, _, [], mark :: marks => (reached || mark) :: marks
  | _, _, _, [] => []

def advance (text : List Char) (marks : List Bool) : GlobToken → List Bool
  | .char c => Text.afterChar (· == c) text marks
  | .anyChar => Text.afterChar (fun _ => true) text marks
  | .oneOf ranges => Text.afterChar (fun c => ranges.any (·.contains c)) text marks
  | .noneOf ranges => Text.afterChar (fun c => !ranges.any (·.contains c)) text marks
  | .anySequence => afterSequence false marks
  | .anyDirectories => afterDirectories false false text marks

def fits (glob : Glob) (text : String) : Bool :=
  let chars := text.toList
  let start := true :: List.replicate chars.length false
  (glob.tokens.foldl (advance chars) start).getLast? == some true

end Glob

end CrateAtlas
