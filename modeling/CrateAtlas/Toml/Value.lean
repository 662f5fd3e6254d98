import CrateAtlas.Decimal.Double

/-!
Values and tables of TOML documents, and what headers and keys may add to them.
-/

namespace CrateAtlas.Toml

/-- How a table came to be. This decides what may be added to it. -/
inductive Origin where
  /-- A header names it. -/
  | header
  /-- Only longer headers name it. -/
  | implied
  /-- A dotted key names it. -/
  | dotted
  /-- It is written in braces. -/
  | inline
  deriving DecidableEq, Repr, Inhabited

inductive Value where
  | text (value : String)
  | integer (value : Int)
  | float (value : Double)
  | boolean (value : Bool)
  | moment
  | list (items : List Value)
  | table (origin : Origin) (entries : List (String × Value))
  /-- Tables that headers in double brackets add to, of which the latest can still grow. -/
  | tables (latest : List (String × Value)) (earlier : List (List (String × Value)))
  deriving Repr, Inhabited

abbrev Entries := List (String × Value)

/-- A line of a document that is not blank. The last part of a key stands apart from the others. -/
inductive Statement where
  | header (path : List String) (last : String)
  | listHeader (path : List String) (last : String)
  | setting (path : List String) (last : String) (value : Value)
  deriving Repr, Inhabited

namespace Entries

def alter (key : String) (change : Option Value → Option Value) : Entries → Option Entries
  | [] => (change none).map fun value => [(key, value)]
  | (other, value) :: rest =>
    if other = key then (change (some value)).map fun value => (other, value) :: rest
    else (alter key change rest).map ((other, value) :: ·)

def alterAt (change : Entries → Option Entries) : List String → Entries → Option Entries
  | [], entries => change entries
  | key :: path, entries =>
    alter key
      (fun
        | none => (alterAt change path []).map (.table .implied)
        | some (.table .inline _) => none
        | some (.table origin inner) => (alterAt change path inner).map (.table origin)
        | some (.tables latest earlier) => (alterAt change path latest).map (.tables · earlier)
        | some _ => none)
      entries

/-- Opens a table. It may exist already if only longer headers name it. -/
def openTable (last : String) : Entries → Option Entries :=
  alter last fun
    | none => some (.table .header [])
    | some (.table .implied inner) => some (.table .header inner)
    | some _ => none

def openListed (last : String) : Entries → Option Entries :=
  alter last fun
    | none => some (.tables [] [])
    | some (.tables latest earlier) => some (.tables [] (latest :: earlier))
    | some _ => none

/-- Gives a key its value. A dotted key may add to a table that no header names, but the table that
takes the value itself has to come from dotted keys. -/
def put (last : String) (value : Value) : List String → Entries → Option Entries
  | [], entries =>
    alter last
      (fun
        | none => some value
        | some _ => none)
      entries
  | key :: path, entries =>
    alter key
      (fun
        | none => (put last value path []).map (.table .dotted)
        | some (.table .dotted inner) => (put last value path inner).map (.table .dotted)
        | some (.table .implied inner) =>
          if path = [] then none else (put last value path inner).map (.table .implied)
        | some (.tables latest earlier) =>
          if path = [] then none else (put last value path latest).map (.tables · earlier)
        | some _ => none)
      entries

end Entries

structure Draft where
  entries : Entries
  current : List String

namespace Draft

def add (draft : Draft) : Statement → Option Draft
  | .header path last =>
    (Entries.alterAt (Entries.openTable last) path draft.entries).map (⟨·, path ++ [last]⟩)
  | .listHeader path last =>
    (Entries.alterAt (Entries.openListed last) path draft.entries).map (⟨·, path ++ [last]⟩)
  | .setting path last value =>
    (Entries.alterAt (Entries.put last value path) draft.current draft.entries).map (⟨·, draft.current⟩)

end Draft

def assemble? (statements : List Statement) : Option Entries :=
  (statements.foldlM Draft.add ⟨[], []⟩).map Draft.entries

end CrateAtlas.Toml
