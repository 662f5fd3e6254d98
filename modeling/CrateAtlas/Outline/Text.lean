import CrateAtlas.Outline.Tree

/-!
The text form of an outline: `Kind` for a leaf, `Kind(part part)` for a construct with parts, and
`<text>` for a module specifier.
-/

namespace CrateAtlas.Outline

mutual

def render : Outline → String
  | node kind [] => kind.name
  | node kind (part :: rest) => kind.name ++ "(" ++ part.render ++ renderRest rest ++ ")"
  | specifier text => "<" ++ text ++ ">"

def renderRest : List Outline → String
  | [] => ""
  | part :: rest => " " ++ part.render ++ renderRest rest

end

/-- One reading step: what is on the left of the position, innermost list first, as the kinds of
the constructs still open with their parts so far, last part first. -/
structure Reading where
  outer : List (Kind × List Outline)
  done : List Outline

namespace Reading

def push (outline : Outline) (reading : Reading) : Reading :=
  { reading with done := outline :: reading.done }

def close (reading : Reading) : Option Reading :=
  match reading.outer with
  | [] => none
  | (kind, before) :: outer => some ⟨outer, node kind reading.done.reverse :: before⟩

end Reading

/-- Reads the rest of a text; `none` if it is not the text form of outlines. -/
def readFrom : Nat → Reading → List Char → Option Reading
  | 0, _, _ => none
  | _ + 1, reading, [] => some reading
  | fuel + 1, reading, ' ' :: rest => readFrom fuel reading rest
  | fuel + 1, reading, ')' :: rest => do readFrom fuel (← reading.close) rest
  | fuel + 1, reading, '<' :: rest =>
    let text := String.ofList (rest.takeWhile (· != '>'))
    readFrom fuel (reading.push (.specifier text)) ((rest.dropWhile (· != '>')).drop 1)
  | fuel + 1, reading, first :: rest => do
    let letters := (first :: rest).takeWhile Char.isAlpha
    let kind ← Kind.ofName? (String.ofList letters)
    match (first :: rest).dropWhile Char.isAlpha with
    | '(' :: rest => readFrom fuel ⟨(kind, reading.done) :: reading.outer, []⟩ rest
    | rest => readFrom fuel (reading.push (leaf kind)) rest

def read? (text : String) : Option Outline := do
  match ← readFrom (text.length + 1) ⟨[], []⟩ text.toList with
  | ⟨[], [outline]⟩ => some outline
  | _ => none

end CrateAtlas.Outline
