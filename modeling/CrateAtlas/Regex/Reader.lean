import CrateAtlas.Json.Reader
import CrateAtlas.Regex.Basic
import CrateAtlas.Text.Letter
import CrateAtlas.Text.Basic

/-!
The text of regular expressions.
-/

namespace CrateAtlas.Regex

structure Flags where
  ignoreCase : Bool := false
  multiLine : Bool := false
  dotAll : Bool := false
  /-- Whether a carriage return ends a line, too. -/
  crlf : Bool := false
  spaced : Bool := false
  deriving DecidableEq, Repr, Inhabited

structure ReaderState where
  rest : List Char
  flags : Flags
  names : List String
  deriving DecidableEq, Repr, Inhabited

/-- A reader of expressions. It gives nothing if the text is none. -/
abbrev Reader := StateT ReaderState Option

def afterSpace : (inComment : Bool) → List Char → List Char
  | _, [] => []
  | true, c :: rest => afterSpace (c != '\n') rest
  | false, c :: rest =>
    if Text.isBlank c then afterSpace false rest
    else if c = '#' then afterSpace true rest
    else c :: rest

/-- The character behind a dash that decides whether the dash makes a range. -/
def behindDash (flags : Flags) (rest : List Char) : Option Char :=
  if flags.spaced then
    let next :=
      match rest.dropWhile Text.isBlank with
      | '#' :: comment => (comment.dropWhile Text.isBlank).head?
      | other => other.head?
    next <|> rest.head?
  else rest.head?

def isEscapable (c : Char) : Bool :=
  c.toNat < 0x80 && !c.isAlphanum && c != '<' && c != '>'

namespace Reader

def rest : Reader (List Char) := do
  return (← get).rest

def flags : Reader Flags := do
  return (← get).flags

def setRest (rest : List Char) : Reader Unit :=
  modify ({ · with rest })

def space : Reader Unit :=
  modify fun state => if state.flags.spaced then { state with rest := afterSpace false state.rest } else state

def bump : Reader Unit :=
  modify fun state => { state with rest := state.rest.tail }

def bumpSpace : Reader Unit := do
  bump
  space

def ahead : Reader Char := do
  match ← rest with
  | c :: _ => return c
  | [] => failure

def take? (text : String) : Reader Bool := do
  if text.toList.isPrefixOf (← rest) then
    setRest ((← rest).drop text.length)
    return true
  return false

def single (c : Char) : Reader Regex := do
  if (← flags).ignoreCase ∧ c.isAlpha then
    return .set (CharSet.bothCases (.ofChars [(c, c)]))
  return .char c

def dot : Reader Regex := do
  let flags ← flags
  if flags.dotAll then return .set (.ofRanges [(0, CharSet.maxCode)])
  if flags.crlf then return .set (CharSet.complement (.ofChars [('\n', '\n'), ('\r', '\r')]))
  return .set (CharSet.complement (.ofChars [('\n', '\n')]))

def startAnchor : Reader Regex := do
  let flags ← flags
  return .look (if !flags.multiLine then .textStart else if flags.crlf then .lineStartCrlf else .lineStart)

def endAnchor : Reader Regex := do
  let flags ← flags
  return .look (if !flags.multiLine then .textEnd else if flags.crlf then .lineEndCrlf else .lineEnd)

def ofCode (digits : List Char) : Reader Regex := do
  let code := digits.foldl (fun value c => value * 16 + (Json.hexDigit? c).getD 0) 0
  if code.isValidChar then single (Char.ofNat code) else failure

def fixedDigits : Nat → List Char → Reader (List Char)
  | 0, found => return found.reverse
  | count + 1, found => do
    let c ← ahead
    if (Json.hexDigit? c).isNone then failure
    bumpSpace
    fixedDigits count (c :: found)

def bracedDigits : Nat → List Char → Reader (List Char)
  | 0, _ => failure
  | fuel + 1, found => do
    let c ← ahead
    bumpSpace
    if c = '}' then
      if found.isEmpty then failure else return found.reverse
    if (Json.hexDigit? c).isNone then failure
    bracedDigits fuel (c :: found)

/-- A character by its code, after the letter that says how long the code is. -/
def codePoint (count : Nat) : Reader Regex := do
  bumpSpace
  if (← ahead) = '{' then
    bumpSpace
    ofCode (← bracedDigits ((← rest).length + 1) [])
  else ofCode (← fixedDigits count [])

def isBoundaryChar (c : Char) : Bool :=
  c.isAlpha || c == '-'

def boundaryName : Nat → List Char → Reader String
  | 0, _ => failure
  | fuel + 1, found => do
    let c ← ahead
    if isBoundaryChar c then
      bumpSpace
      boundaryName fuel (c :: found)
    else if c = '}' then
      bump
      return String.ofList found.reverse
    else failure

/-- A word boundary with a name in braces, if the brace does not start a number of repetitions. -/
def wordBoundary : Reader Regex := do
  let start ← get
  match start.rest with
  | '{' :: _ =>
    bumpSpace
    if isBoundaryChar (← ahead) then
      match ← boundaryName ((← rest).length + 1) [] with
      | "start" => return .look .wordStart
      | "end" => return .look .wordEnd
      | "start-half" => return .look .wordStartHalf
      | "end-half" => return .look .wordEndHalf
      | _ => failure
    else
      modify fun _ => start
      return .look .wordEdge
  | _ => return .look .wordEdge

def escape : Reader Regex := do
  let c ← ahead
  let named := fun (name : String) (negated : Bool) => do
    match CharSet.named? name with
    | some chars =>
      bump
      return Regex.set (if negated then chars.complement else chars)
    | none => failure
  match c with
  | 'x' => codePoint 2
  | 'u' => codePoint 4
  | 'U' => codePoint 8
  | 'd' => named "digit" false
  | 'D' => named "digit" true
  | 's' => named "space" false
  | 'S' => named "space" true
  | 'w' => named "word" false
  | 'W' => named "word" true
  | _ =>
    bump
    if isEscapable c then single c
    else
      match c with
      | 'a' => single '\x07'
      | 'f' => single '\x0c'
      | 't' => single '\t'
      | 'n' => single '\n'
      | 'r' => single '\r'
      | 'v' => single '\x0b'
      | 'A' => return .look .textStart
      | 'z' => return .look .textEnd
      | 'b' => wordBoundary
      | 'B' => return .look .noWordEdge
      | '<' => return .look .wordStart
      | '>' => return .look .wordEnd
      | _ => failure

def namedSet? (text : List Char) : Option (CharSet × List Char) := do
  match text with
  | '[' :: ':' :: rest =>
    let (negated, rest) :=
      match rest with
      | '^' :: rest => (true, rest)
      | rest => (false, rest)
    let name := rest.takeWhile (· != ':')
    match rest.dropWhile (· != ':') with
    | ':' :: ']' :: after =>
      let chars ← CharSet.named? (String.ofList name)
      return (if negated then chars.complement else chars, after)
    | _ => none
  | _ => none

def bracketItem : Reader Regex := do
  let c ← ahead
  bump
  if c = '\\' then escape else return .char c

def charOf? : Regex → Option Char
  | .char c => some c
  | _ => none

def rangesOf? : Regex → Option (List (Nat × Nat))
  | .char c => some [(c.toNat, c.toNat)]
  | .set chars => some chars.ranges
  | _ => none

def bracketRange : Reader (List (Nat × Nat)) := do
  let first ← bracketItem
  space
  let c ← ahead
  let behind := behindDash (← flags) (← rest).tail
  if c ≠ '-' ∨ behind = some ']' ∨ behind = some '-' then StateT.lift (rangesOf? first)
  else
    bumpSpace
    let last ← bracketItem
    let low ← StateT.lift (charOf? first)
    let high ← StateT.lift (charOf? last)
    if low ≤ high then return [(low.toNat, high.toNat)] else failure

/-- Dashes at the start of brackets, which stand for themselves. -/
def bracketDashes : Nat → List (Nat × Nat) → Reader (List (Nat × Nat))
  | 0, _ => failure
  | fuel + 1, found => do
    if (← ahead) = '-' then
      bumpSpace
      bracketDashes fuel (('-'.toNat, '-'.toNat) :: found)
    else return found

def bracketRest : Nat → List (Nat × Nat) → Reader CharSet
  | 0, _ => failure
  | fuel + 1, found => do
    space
    let text ← rest
    match text with
    | [] => failure
    | '[' :: _ =>
      let (chars, after) ← StateT.lift (namedSet? text)
      setRest after
      bracketRest fuel (chars.ranges ++ found)
    | ']' :: after =>
      setRest after
      return .ofRanges found
    | '&' :: '&' :: _ => failure
    | '-' :: '-' :: _ => failure
    | '~' :: '~' :: _ => failure
    | _ => bracketRest fuel ((← bracketRange) ++ found)

def brackets : Reader Regex := do
  let fuel := (← rest).length + 1
  space
  let negated ← (do
    if (← ahead) = '^' then
      bumpSpace
      return true
    return false)
  let found ← bracketDashes fuel []
  let found ← (do
    if found.isEmpty ∧ (← ahead) = ']' then
      bumpSpace
      return [(']'.toNat, ']'.toNat)]
    return found)
  let chars ← bracketRest fuel found
  let chars := if (← flags).ignoreCase then chars.bothCases else chars
  return .set (if negated then chars.complement else chars)

def decimalDigits : Nat → Nat → Nat → Reader (Nat × Nat)
  | 0, _, _ => failure
  | fuel + 1, count, value => do
    match ← rest with
    | c :: _ =>
      if c.isDigit then
        bumpSpace
        decimalDigits fuel (count + 1) (value * 10 + (c.toNat - '0'.toNat))
      else return (count, value)
    | [] => return (count, value)

def decimal : Reader Nat := do
  setRest ((← rest).dropWhile Text.isBlank)
  let (count, value) ← decimalDigits ((← rest).length + 1) 0 0
  space
  setRest ((← rest).dropWhile Text.isBlank)
  space
  if count = 0 ∨ Nat.pow 2 32 ≤ value then failure else return value

def lazyMark : Reader Unit := do
  let _ ← take? "?"

def counts : Reader (Nat × Option Nat) := do
  space
  let _ ← ahead
  let least ← decimal
  let most ← (do
    if (← ahead) = ',' then
      bumpSpace
      if (← ahead) = '}' then return none else return some (← decimal)
    return some least)
  if (← ahead) ≠ '}' then failure
  bumpSpace
  lazyMark
  if most.any (· < least) then failure else return (least, most)

def isNameChar (isFirst : Bool) (c : Char) : Bool :=
  c == '_' ||
    (if isFirst then Text.isLetter c else Text.isLetterOrNumber c || c == '.' || c == '[' || c == ']')

/-- The name of a group, up to the closing angle bracket. No other group has it. -/
def groupName : Reader Unit := do
  let text ← rest
  let name := text.takeWhile (· != '>')
  match name, text.dropWhile (· != '>') with
  | first :: others, _ :: after =>
    let name := String.ofList name
    if !isNameChar true first ∨ !others.all (isNameChar false) ∨ (← get).names.contains name then
      failure
    modify fun state => { state with rest := after, names := name :: state.names }
  | _, _ => failure

def switch? (flags : Flags) (on : Bool) : Char → Option Flags
  | 'i' => some { flags with ignoreCase := on }
  | 'm' => some { flags with multiLine := on }
  | 's' => some { flags with dotAll := on }
  | 'R' => some { flags with crlf := on }
  | 'x' => some { flags with spaced := on }
  | 'U' | 'u' => some flags
  | _ => none

/-- Options up to a colon or a closing parenthesis, of which none occurs twice. -/
def options : Nat → (seen : List Char) → (on dangling : Bool) → Flags → Reader Flags
  | 0, _, _, _, _ => failure
  | fuel + 1, seen, on, dangling, flags => do
    let c ← ahead
    if c = ':' ∨ c = ')' then
      if dangling then failure else return flags
    else if c = '-' then
      if !on then failure
      bump
      options fuel seen false true flags
    else
      let switched ← StateT.lift (switch? flags on c)
      if seen.contains c then failure
      bump
      options fuel (c :: seen) on false switched

/-- What a group in parentheses holds, after the opening one. Options without an expression give
nothing, and stay in force behind the group. -/
def group (inner : Reader Regex) : Reader (Option Regex) := do
  let old ← flags
  let restore : Reader Unit := modify ({ · with flags := old })
  space
  let text ← rest
  if ["?=", "?!", "?<=", "?<!"].any (·.toList.isPrefixOf text) then failure
  let named ← (do if ← take? "?P<" then return true else take? "?<")
  if named then
    groupName
    let inside ← inner
    restore
    return some (.capture inside)
  else if ← take? "?" then
    let switched ← options ((← rest).length + 1) [] true false old
    modify ({ · with flags := switched })
    if (← ahead) = ')' then
      if text.drop 1 = (← rest) then failure
      return none
    bump
    let inside ← inner
    restore
    return some inside
  else
    let inside ← inner
    restore
    return some (.capture inside)

def repeatLast (parts : List Regex) (least : Nat) (most : Option Nat) : Reader (List Regex) :=
  match parts with
  | last :: before => return last.repeated least most :: before
  | [] => failure

/-- Alternatives up to the end of the text or of the group. The parts of the current one and the
alternatives before it come last first. -/
def alternatives (inner : Reader Regex) (isTop : Bool) :
    Nat → List Regex → List Regex → Reader Regex
  | 0, _, _ => failure
  | fuel + 1, parts, before => do
    space
    let text ← rest
    let finish : Reader Regex :=
      return .ofChoices (Regex.ofParts parts.reverse :: before).reverse
    match text with
    | [] => finish
    | c :: after =>
      match c with
      | ')' => if isTop then failure else finish
      | '(' =>
        setRest after
        let inside ← group inner
        if (← ahead) ≠ ')' then failure
        bump
        alternatives inner isTop fuel (inside.toList ++ parts) before
      | '|' =>
        setRest after
        alternatives inner isTop fuel [] (Regex.ofParts parts.reverse :: before)
      | '[' =>
        setRest after
        let chars ← brackets
        alternatives inner isTop fuel (chars :: parts) before
      | '?' =>
        let parts ← repeatLast parts 0 (some 1)
        setRest after
        lazyMark
        alternatives inner isTop fuel parts before
      | '*' =>
        let parts ← repeatLast parts 0 none
        setRest after
        lazyMark
        alternatives inner isTop fuel parts before
      | '+' =>
        let parts ← repeatLast parts 1 none
        setRest after
        lazyMark
        alternatives inner isTop fuel parts before
      | '{' =>
        setRest after
        let (least, most) ← counts
        alternatives inner isTop fuel (← repeatLast parts least most) before
      | '\\' =>
        setRest after
        let part ← escape
        alternatives inner isTop fuel (part :: parts) before
      | '.' =>
        setRest after
        alternatives inner isTop fuel ((← dot) :: parts) before
      | '^' =>
        setRest after
        alternatives inner isTop fuel ((← startAnchor) :: parts) before
      | '$' =>
        setRest after
        alternatives inner isTop fuel ((← endAnchor) :: parts) before
      | c =>
        setRest after
        alternatives inner isTop fuel ((← single c) :: parts) before

def expression (isTop : Bool) : Nat → Reader Regex
  | 0 => failure
  | depth + 1 => do
    alternatives (expression false depth) isTop ((← rest).length + 1) [] []

end Reader

/-- The expression in a text; nothing if it is none, or one that nests too deeply or costs too much. -/
def compile? (text : String) : Option Regex := do
  let (regex, _) ← Reader.expression true (maxHeight + 1) ⟨text.toList, {}, []⟩
  if regex.height ≤ maxHeight ∧ regex.cost + 3 * stateCost ≤ maxCost then return regex else none

end CrateAtlas.Regex
