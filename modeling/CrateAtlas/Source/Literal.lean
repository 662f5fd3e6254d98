import CrateAtlas.Source.Token
import CrateAtlas.Text.Identifier

/-!
Literals of Rust source text. Each scanner takes the text from its position on and gives what is
left after the literal, or `none` if no such literal stands there.
-/

namespace CrateAtlas.Source

open CrateAtlas.Text

def scanName? : List Char → Option (List Char × List Char)
  | [] => none
  | c :: rest =>
    if isIdentStart c then some (c :: rest.takeWhile isIdentContinue, rest.dropWhile isIdentContinue)
    else none

def dropSuffix (text : List Char) : List Char :=
  match scanName? text with
  | some (_, rest) => rest
  | none => text

def isHexDigit (c : Char) : Bool :=
  c.isDigit || ('a' ≤ c && c ≤ 'f') || ('A' ≤ c && c ≤ 'F')

def digitValue (c : Char) : Nat :=
  if c.isDigit then c.toNat - '0'.toNat
  else if 'a' ≤ c && c ≤ 'f' then c.toNat - 'a'.toNat + 10
  else if 'A' ≤ c && c ≤ 'F' then c.toNat - 'A'.toNat + 10
  else 0

/-- The digits, at most six, and the closing brace of a `\u` escape: its value and what follows. -/
def scanCodePoint (digits value : Nat) : List Char → Option (Nat × List Char)
  | [] => none
  | c :: rest =>
    if isHexDigit c then
      if digits = 6 then none else scanCodePoint (digits + 1) (value * 16 + digitValue c) rest
    else if c = '_' && digits != 0 then scanCodePoint digits value rest
    else if c = '\x7d' && digits != 0 then
      if value.isValidChar then some (value, rest) else none
    else none

structure QuoteRules where
  hexEscape : Char → Char → Bool
  codePoint : Nat → Bool
  letterEscape : Char → Bool
  plain : Char → Bool

def textRules : QuoteRules where
  hexEscape a b := '0' ≤ a && a ≤ '7' && isHexDigit b
  codePoint _ := true
  letterEscape c := c ∈ ['n', 'r', 't', '\\', '\'', '"', '0']
  plain _ := true

def byteRules : QuoteRules where
  hexEscape a b := isHexDigit a && isHexDigit b
  codePoint _ := false
  letterEscape c := c ∈ ['n', 'r', 't', '\\', '\'', '"', '0']
  plain c := c.toNat < 128

def foreignRules : QuoteRules where
  hexEscape a b := isHexDigit a && isHexDigit b && !(a == '0' && b == '0')
  codePoint value := value != 0
  letterEscape c := c ∈ ['n', 'r', 't', '\\', '\'', '"']
  plain c := c != '\x00'

def scanEscape (rules : QuoteRules) : List Char → Option (List Char)
  | 'x' :: a :: b :: rest => if rules.hexEscape a b then some rest else none
  | 'u' :: '\x7b' :: rest =>
    match scanCodePoint 0 0 rest with
    | some (value, rest) => if rules.codePoint value then some rest else none
    | none => none
  | c :: rest => if rules.letterEscape c then some rest else none
  | [] => none

/-- What is left after the blanks that follow a backslash at the end of a line. A carriage return
needs a line feed behind it. -/
def skipContinuation : List Char → Option (List Char)
  | '\r' :: '\n' :: rest => skipContinuation rest
  | '\r' :: _ => none
  | c :: rest => if c = ' ' || c = '\t' || c = '\n' then skipContinuation rest else some (c :: rest)
  | [] => none

/-- What is left after the closing quote of a literal with escapes; the fuel is the length of the text. -/
def scanQuoted (rules : QuoteRules) : Nat → List Char → Option (List Char)
  | 0, _ | _, [] => none
  | fuel + 1, c :: rest =>
    if c = '"' then some rest
    else if c = '\r' then
      match rest with
      | '\n' :: rest => scanQuoted rules fuel rest
      | _ => none
    else if c = '\\' then
      match rest with
      | '\n' :: _ | '\r' :: _ => (skipContinuation rest).bind (scanQuoted rules fuel)
      | _ => (scanEscape rules rest).bind (scanQuoted rules fuel)
    else if rules.plain c then scanQuoted rules fuel rest
    else none

/-- What is left after the closing quote and the given number of hash marks. -/
def scanRaw (rules : QuoteRules) (marks : Nat) : List Char → Option (List Char)
  | [] => none
  | '\r' :: '\n' :: rest => scanRaw rules marks rest
  | c :: rest =>
    if c = '"' && rest.take marks == List.replicate marks '#' then some (rest.drop marks)
    else if c = '\r' then none
    else if rules.plain c then scanRaw rules marks rest
    else none

def scanRawFrom (rules : QuoteRules) (text : List Char) : Option (List Char) :=
  let marks := (text.takeWhile (· == '#')).length
  match text.drop marks with
  | '"' :: rest => if marks ≤ 255 then (scanRaw rules marks rest).map dropSuffix else none
  | _ => none

def scanQuotedFrom (rules : QuoteRules) (text : List Char) : Option (List Char) :=
  (scanQuoted rules text.length text).map dropSuffix

def scanCharacter (rules : QuoteRules) : List Char → Option (List Char)
  | [] => none
  | c :: rest =>
    let after := if c = '\\' then scanEscape rules rest else if rules.plain c then some rest else none
    match after with
    | some ('\'' :: rest) => some (dropSuffix rest)
    | _ => none

/-- The exponent of a number, read from behind its letter: what is left, or `none` if it has no
digits. -/
def scanExponent (signed valued : Bool) : List Char → Option (List Char)
  | [] => if valued then some [] else none
  | c :: rest =>
    if c = '+' || c = '-' then
      if valued then some (c :: rest)
      else if signed then none
      else scanExponent true valued rest
    else if c.isDigit then scanExponent signed true rest
    else if c = '_' then scanExponent signed valued rest
    else if valued then some (c :: rest)
    else none

def scanFloatDigits (point : Bool) : List Char → Option (List Char)
  | [] => if point then some [] else none
  | c :: rest =>
    if c.isDigit || c = '_' then scanFloatDigits point rest
    else if c = '.' then
      if point then some (c :: rest)
      else match rest with
        | next :: _ =>
          if next = '.' || isIdentStart next then none else scanFloatDigits true rest
        | [] => scanFloatDigits true rest
    else if c = 'e' || c = 'E' then
      match scanExponent false false rest with
      | some rest => some rest
      | none => if point then some (c :: rest) else none
    else if point then some (c :: rest)
    else none

def endNumber (text : List Char) : Option (List Char) :=
  match dropSuffix text with
  | c :: rest => if isIdentContinue c then none else some (c :: rest)
  | [] => some []

def scanFloat : List Char → Option (List Char)
  | [] => none
  | c :: rest => if c.isDigit then (scanFloatDigits false rest).bind endNumber else none

/-- The digits of an integer in a base: its value and what is left. A decimal does not start with
an underscore, and a decimal digit must be one of the base. -/
def scanDigits (base : Nat) (value : Nat) (empty : Bool) : List Char → Option (Nat × List Char)
  | [] => if empty then none else some (value, [])
  | c :: rest =>
    if c.isDigit then
      if digitValue c < base then scanDigits base (value * base + digitValue c) false rest else none
    else if isHexDigit c && decide (digitValue c < base) then
      scanDigits base (value * base + digitValue c) false rest
    else if c = '_' then
      if empty && base == 10 then none else scanDigits base value empty rest
    else if empty then none
    else some (value, c :: rest)

/-- An integer: its value, whether it has a suffix, and what is left. -/
def scanInteger (text : List Char) : Option (Nat × Bool × List Char) := do
  let (value, rest) ← match text with
    | '0' :: 'x' :: rest => scanDigits 16 0 true rest
    | '0' :: 'o' :: rest => scanDigits 8 0 true rest
    | '0' :: 'b' :: rest => scanDigits 2 0 true rest
    | _ => scanDigits 10 0 true text
  let left ← endNumber rest
  return (value, (scanName? rest).isSome, left)

def scanLiteral (text : List Char) : Option (Literal × List Char) :=
  let quoted := match text with
    | '"' :: rest => (scanQuotedFrom textRules rest).map (Literal.string, ·)
    | 'r' :: rest => (scanRawFrom textRules rest).map (Literal.string, ·)
    | 'b' :: '"' :: rest => (scanQuotedFrom byteRules rest).map (Literal.other, ·)
    | 'b' :: 'r' :: rest => (scanRawFrom byteRules rest).map (Literal.other, ·)
    | 'c' :: '"' :: rest => (scanQuotedFrom foreignRules rest).map (Literal.other, ·)
    | 'c' :: 'r' :: rest => (scanRawFrom foreignRules rest).map (Literal.other, ·)
    | 'b' :: '\'' :: rest => (scanCharacter byteRules rest).map (Literal.other, ·)
    | '\'' :: rest => (scanCharacter textRules rest).map (Literal.other, ·)
    | _ => none
  match quoted with
  | some found => some found
  | none =>
    match scanFloat text with
    | some rest => some (.float (String.ofList (text.take (text.length - rest.length))), rest)
    | none => (scanInteger text).map fun (value, suffixed, rest) => (.integer value suffixed, rest)

end CrateAtlas.Source
