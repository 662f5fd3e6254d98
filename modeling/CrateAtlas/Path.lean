import CrateAtlas.Text.Bytes

/-!
File paths. A path is a sequence of bytes that keeps its spelling; what it names is decided by its
components. Repeated and trailing separators and `.` components other than the first do not count.
-/

namespace CrateAtlas

inductive Component where
  | root
  | current
  | parent
  | name (bytes : Bytes)
  deriving DecidableEq, Repr, Inhabited

namespace Component

def bytes : Component → Bytes
  | root => "/"
  | current => "."
  | parent => ".."
  | name bytes => bytes

def rank : Component → Nat
  | root => 0
  | current => 1
  | parent => 2
  | name _ => 3

/-- The order of components: by kind, and names by their bytes. -/
def compare (a b : Component) : Ordering :=
  (Ord.compare a.rank b.rank).then (Ord.compare a.bytes b.bytes)

end Component

@[ext]
structure Path where
  bytes : Bytes
  deriving DecidableEq, Repr, Inhabited

namespace Path

def ofText (text : String) : Path :=
  ⟨text⟩

instance : Coe String Path := ⟨ofText⟩

def display (path : Path) : String :=
  path.bytes.display

def text? (path : Path) : Option String :=
  path.bytes.text?

instance : ToString Path := ⟨display⟩

abbrev slash : UInt8 := 0x2F

abbrev dot : UInt8 := 0x2E

/-- Splits bytes at separators. Empty parts are kept. -/
def splitParts (bytes : Bytes) : List Bytes :=
  bytes.foldr
    (fun byte parts =>
      match parts with
      | [] => [[byte]]
      | part :: rest => if byte = slash then [] :: part :: rest else (byte :: part) :: rest)
    [[]]

structure Piece where
  component : Component
  start : Nat
  stop : Nat

/-- The component that a part stands for; nothing if the part does not count. -/
def component? (first : Bool) (part : Bytes) : Option Component :=
  if part = [] then none
  else if part = [dot] then if first then some .current else none
  else if part = [dot, dot] then some .parent
  else some (.name part)

def piecesFrom (first : Bool) (start : Nat) : List Bytes → List Piece
  | [] => []
  | part :: rest =>
    let stop := start + part.length
    let later := piecesFrom false (stop + 1) rest
    match component? first part with
    | some component => ⟨component, start, stop⟩ :: later
    | none => later

def isAbsolute (path : Path) : Bool :=
  path.bytes.head? == some slash

def pieces (path : Path) : List Piece :=
  let parts := splitParts path.bytes
  if path.isAbsolute then ⟨.root, 0, 1⟩ :: piecesFrom false 0 parts else piecesFrom true 0 parts

def components (path : Path) : List Component :=
  path.pieces.map (·.component)

def same (a b : Path) : Bool :=
  a.components == b.components

def slice (path : Path) (start stop : Nat) : Path :=
  ⟨(path.bytes.take stop).drop start⟩

/-- The path without its last component; nothing for a root and for the empty path. -/
def parent? (path : Path) : Option Path :=
  match path.pieces.reverse with
  | [] => none
  | last :: before =>
    if last.component = .root then none
    else some (path.slice 0 ((before.head?.map (·.stop)).getD 0))

/-- The path and the paths that leave out components at its end, at most so many of these. -/
def ancestorsUpTo : Nat → Path → List Path
  | 0, path => [path]
  | count + 1, path =>
    match path.parent? with
    | some parent => path :: ancestorsUpTo count parent
    | none => [path]

def ancestors (path : Path) : List Path :=
  ancestorsUpTo path.components.length path

/-- The last component, if it is a name. -/
def fileName? (path : Path) : Option Bytes :=
  match path.components.getLast? with
  | some (.name bytes) => some bytes
  | _ => none

/-- What follows the last dot of the last name, if something stands before the dot. -/
def fileExtension? (path : Path) : Option Bytes := do
  let name ← path.fileName?
  let reversed := name.reverse
  let after := reversed.takeWhile (· != dot)
  match reversed.dropWhile (· != dot) with
  | _ :: _ :: _ => some after.reverse
  | _ => none

def startsWith (path base : Path) : Bool :=
  base.components.isPrefixOf path.components

def below? (path base : Path) : Option Path :=
  if path.startsWith base then
    let rest := path.pieces.drop base.pieces.length
    match rest.head?, rest.getLast? with
    | some first, some last => some (path.slice first.start last.stop)
    | _, _ => some ⟨[]⟩
  else none

/-- A path seen from another one. An absolute path replaces what stands before it. -/
def join (base path : Path) : Path :=
  if path.isAbsolute || base.bytes.isEmpty then path
  else if base.bytes.getLast? == some slash then ⟨base.bytes ++ path.bytes⟩
  else ⟨base.bytes ++ slash :: path.bytes⟩

def ofComponents (components : List Component) : Path :=
  components.foldl (fun path component => path.join ⟨component.bytes⟩) ⟨[]⟩

def compare (a b : Path) : Ordering :=
  go a.components b.components
where
  go : List Component → List Component → Ordering
    | [], [] => .eq
    | [], _ :: _ => .lt
    | _ :: _, [] => .gt
    | x :: xs, y :: ys => (x.compare y).then (go xs ys)

end Path

end CrateAtlas
