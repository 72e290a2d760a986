/-!
# Splitting text at a mark
-/

namespace Appraisal.Text

/-- The parts of a text between the marks. There is one part more than there are marks. -/
def splitAtMark (mark : Char) : List Char → List (List Char)
  | [] => [[]]
  | c :: cs =>
    if c = mark then [] :: splitAtMark mark cs
    else match splitAtMark mark cs with
      | part :: parts => (c :: part) :: parts
      | [] => [[c]]

/-- The text up to the first mark, and the text behind it. -/
def cutAtMark (mark : Char) (cs : List Char) : List Char × List Char :=
  (cs.takeWhile (· ≠ mark), (cs.dropWhile (· ≠ mark)).drop 1)

end Appraisal.Text
