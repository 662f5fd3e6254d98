/-!
Sets of positions in a text, as a mark for each position. There is one more position than there are
characters.
-/

namespace CrateAtlas.Text

def afterChar (test : Char → Bool) (text : List Char) (marks : List Bool) : List Bool :=
  false :: List.zipWith (fun c mark => mark && test c) text marks

def union (marks more : List Bool) : List Bool :=
  List.zipWith (· || ·) marks more

def afterExactly (step : List Bool → List Bool) : Nat → List Bool → List Bool
  | 0, marks => marks
  | count + 1, marks => if marks.any id then afterExactly step count (step marks) else marks

def afterAtMost (step : List Bool → List Bool) : Nat → List Bool → List Bool
  | 0, marks => marks
  | count + 1, marks =>
    let more := union marks (step marks)
    if more = marks then marks else afterAtMost step count more

/-- The positions that any number of characters lead to, all of which pass a test. The flag tells
whether the position before was reached and its character passes. -/
def afterRun (test : Char → Bool) : Bool → List Char → List Bool → List Bool
  | reached, c :: text, mark :: marks =>
    (reached || mark) :: afterRun test ((reached || mark) && test c) text marks
  | reached, [], mark :: marks => (reached || mark) :: marks
  | _, _, [] => []

end CrateAtlas.Text
