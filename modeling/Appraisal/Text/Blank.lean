import Appraisal.Text.Ranges

/-!
# Blank characters

The characters with the Unicode property `White_Space`, and trimming by them. The 25 code points
are listed as ranges; the six characters of `Char.isWhitespace` are among them.
-/

namespace Appraisal.Text

/-- Inclusive ranges of the code points with the property `White_Space`. -/
def blankRanges : List (Nat × Nat) :=
  [(0x0009, 0x000D), (0x0020, 0x0020), (0x0085, 0x0085), (0x00A0, 0x00A0), (0x1680, 0x1680),
   (0x2000, 0x200A), (0x2028, 0x2029), (0x202F, 0x202F), (0x205F, 0x205F), (0x3000, 0x3000)]

def isBlank (c : Char) : Bool :=
  inRanges blankRanges c

def isBlankText (s : String) : Bool :=
  s.toList.all isBlank

def trimChars (cs : List Char) : List Char :=
  ((cs.dropWhile isBlank).reverse.dropWhile isBlank).reverse

/-- The text without the blanks at its two ends. -/
def trim (s : String) : String :=
  String.ofList (trimChars s.toList)

end Appraisal.Text
