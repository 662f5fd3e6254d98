import CrateAtlas.Source.Literal
import CrateAtlas.Text.Basic

/-!
From source text to tokens. Comments are skipped, except that a documentation comment becomes the
attribute it stands for.
-/

namespace CrateAtlas.Source

open CrateAtlas.Text

def restOfLine : List Char → List Char × List Char
  | [] => ([], [])
  | '\n' :: rest => ([], '\n' :: rest)
  | '\r' :: '\n' :: rest => ([], '\n' :: rest)
  | c :: rest =>
    let (line, left) := restOfLine rest
    (c :: line, left)

/-- A block comment, read from its opening mark, with comments nested in it: the text of the
comment, last character first, and what is left. -/
def scanComment (depth : Nat) (read : List Char) : List Char → Option (List Char × List Char)
  | [] => none
  | '/' :: '*' :: rest => scanComment (depth + 1) ('*' :: '/' :: read) rest
  | '*' :: '/' :: rest =>
    if depth ≤ 1 then some ('/' :: '*' :: read, rest)
    else scanComment (depth - 1) ('/' :: '*' :: read) rest
  | c :: rest => scanComment depth (c :: read) rest

def isSpace (c : Char) : Bool :=
  isBlank c || c == '\u200e' || c == '\u200f'

/-- What is left after blanks and comments that are no documentation. The fuel is the length of the
text. -/
def skipSpace : Nat → List Char → List Char
  | 0, text => text
  | fuel + 1, text =>
    match text with
    | '/' :: '/' :: '/' :: '/' :: rest => skipSpace fuel (restOfLine rest).2
    | '/' :: '/' :: '/' :: _ | '/' :: '/' :: '!' :: _ => text
    | '/' :: '/' :: rest => skipSpace fuel (restOfLine rest).2
    | '/' :: '*' :: '*' :: '/' :: rest => skipSpace fuel rest
    | '/' :: '*' :: '*' :: '*' :: _ =>
      match scanComment 0 [] text with
      | some (_, rest) => skipSpace fuel rest
      | none => text
    | '/' :: '*' :: '*' :: _ | '/' :: '*' :: '!' :: _ => text
    | '/' :: '*' :: _ =>
      match scanComment 0 [] text with
      | some (_, rest) => skipSpace fuel rest
      | none => text
    | c :: rest => if isSpace c then skipSpace fuel rest else text
    | [] => []

def hasBareReturn : List Char → Bool
  | [] => false
  | '\r' :: '\n' :: rest => hasBareReturn rest
  | c :: rest => c == '\r' || hasBareReturn rest

def commentBody (reversed : List Char) : List Char :=
  (reversed.drop 2).reverse.drop 3

/-- A documentation comment at the start of a text: its body, whether it documents what encloses
it, and what is left. -/
def scanDoc : List Char → Option (List Char × Bool × List Char)
  | '/' :: '/' :: '!' :: rest =>
    let (line, left) := restOfLine rest
    some (line, true, left)
  | '/' :: '*' :: '!' :: rest =>
    (scanComment 0 [] ('/' :: '*' :: '!' :: rest)).map fun (read, left) => (commentBody read, true, left)
  | '/' :: '/' :: '/' :: '/' :: _ => none
  | '/' :: '/' :: '/' :: rest =>
    let (line, left) := restOfLine rest
    some (line, false, left)
  | '/' :: '*' :: '*' :: '*' :: _ => none
  | '/' :: '*' :: '*' :: rest =>
    (scanComment 0 [] ('/' :: '*' :: '*' :: rest)).map fun (read, left) => (commentBody read, false, left)
  | _ => none

def startsPunct : List Char → Bool
  | '/' :: '/' :: _ | '/' :: '*' :: _ => false
  | c :: _ => c ∈ "~!@#$%^&*-=+|;:,<.>/?'".toList
  | [] => false

theorem scanName?_filled {text name left : List Char} (scanned : scanName? text = some (name, left)) :
    name ≠ [] := by
  unfold scanName? at scanned
  split at scanned
  · cases scanned
  · split at scanned
    · cases scanned
      exact List.cons_ne_nil _ _
    · cases scanned

theorem scanName?_written {text name left : List Char} (scanned : scanName? text = some (name, left)) :
    name.all isWordChar = true := by
  unfold scanName? at scanned
  split at scanned
  · cases scanned
  · next c rest =>
    split at scanned
    · next starts =>
      cases scanned
      have first : isWordChar c = true := by
        simp only [isIdentStart, Bool.or_eq_true, Bool.and_eq_true] at starts
        simp only [isWordChar, isIdentContinue, Char.isAlphanum, Bool.or_eq_true, Bool.and_eq_true]
        rcases starts with (letter | underscore) | listed
        · exact .inl (.inl (.inl (.inl letter)))
        · exact .inl (.inl (.inr underscore))
        · exact .inl (.inr ⟨listed.1, .inl listed.2⟩)
      have others : ∀ d ∈ rest.takeWhile isIdentContinue, isWordChar d = true := by
        intro d member
        simp [isWordChar, List.all_eq_true.mp List.all_takeWhile d member]
      simpa [first] using others
    · cases scanned

def scanWord? (text : List Char) : Option (Word × List Char) :=
  match scanned : scanName? text with
  | some (name, left) =>
    some (⟨String.ofList name, by simpa using scanName?_filled scanned,
      by simpa using scanName?_written scanned⟩, left)
  | none => none

def Word.raw (word : Word) : Word where
  text := "r#" ++ word.text
  filled := by simp
  written := by
    have letter : isWordChar 'r' = true := by decide
    have mark : isWordChar '#' = true := by decide
    simpa [letter, mark] using word.written

def scanIdent (text : List Char) : Option (Word × List Char) :=
  match text with
  | 'r' :: '#' :: rest => do
    let (word, left) ← scanWord? rest
    if word.text ∈ ["_", "super", "self", "Self", "crate"] then none
    else some (word.raw, left)
  | _ => scanWord? text

/-- Whether a text starts like a literal, so that no identifier may be read from it. -/
def startsLiteral (text : List Char) : Bool :=
  ["r\"", "r#\"", "r##", "b\"", "b'", "br\"", "br#", "c\"", "cr\"", "cr#"].any fun mark =>
    mark.toList.isPrefixOf text

def scanLifetime (text : List Char) : Option (Token × List Char) := do
  let (name, left) ← scanIdent text
  match left with
  | '\'' :: _ => none
  | '#' :: _ => if ['r', '#'].isPrefixOf text then some (.lifetime name.text, left) else none
  | _ => some (.lifetime name.text, left)

def scanLeaf (text : List Char) : Option (Token × List Char) :=
  match scanLiteral text with
  | some (literal, rest) => some (.literal literal, rest)
  | none =>
    match text with
    | '\'' :: rest => scanLifetime rest
    | c :: rest =>
      if startsPunct text then some (.punct c (startsPunct rest), rest)
      else if startsLiteral text then none
      else (scanIdent text).map fun (name, rest) => (.ident name, rest)
    | [] => none

def errorMark : List Char :=
  "(/*ERROR*/)".toList

/-- The groups still open, innermost first, each with the tokens before it, last token first. -/
abbrev OpenGroups := List (Delimiter × List Token)

/-- Reads the tokens of a text. The fuel is more than the length of the text. -/
def lexFrom : Nat → OpenGroups → List Token → List Char → Option (List Token)
  | 0, _, _, _ => none
  | fuel + 1, open_, read, text =>
    match skipSpace fuel text with
    | [] => if open_.isEmpty then some read.reverse else none
    | c :: rest =>
      match scanDoc (c :: rest) with
      | some (body, inner, left) =>
        if hasBareReturn body then none
        else lexFrom fuel open_ ((docAttribute inner).reverse ++ read) left
      | none =>
        if errorMark.isPrefixOf (c :: rest) then
          lexFrom fuel open_ (.literal .other :: read) ((c :: rest).drop errorMark.length)
        else
          match Delimiter.ofOpening? c, Delimiter.ofClosing? c with
          | some delimiter, _ => lexFrom fuel ((delimiter, read) :: open_) [] rest
          | none, some delimiter =>
            match open_ with
            | [] => none
            | (opening, before) :: outer =>
              if opening = delimiter then
                lexFrom fuel outer (.group delimiter read.reverse :: before) rest
              else none
          | none, none =>
            match scanLeaf (c :: rest) with
            | some (token, left) => lexFrom fuel open_ (token :: read) left
            | none => none

def byteOrderMark : Char := '\ufeff'

def dropByteOrderMark : List Char → List Char
  | c :: rest => if c = byteOrderMark then rest else c :: rest
  | [] => []

def lex (text : List Char) : Option (List Token) :=
  lexFrom (text.length + 1) [] [] (dropByteOrderMark text)

end CrateAtlas.Source
