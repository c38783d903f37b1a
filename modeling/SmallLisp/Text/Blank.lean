import SmallLisp.Text.CodePoint

/-!
Blank characters: those with the Unicode property White_Space. They separate tokens and words,
and a line that holds nothing else is an empty line.
-/

namespace SmallLisp.Text

/-- The property White_Space. -/
def whiteSpace : List CodePointRange :=
  [(0x0009, 0x000D), (0x0020, 0x0020), (0x0085, 0x0085), (0x00A0, 0x00A0), (0x1680, 0x1680),
    (0x2000, 0x200A), (0x2028, 0x2029), (0x202F, 0x202F), (0x205F, 0x205F), (0x3000, 0x3000)]

def isBlank (c : Char) : Bool :=
  inRanges whiteSpace c

/-- A text without the blanks at both its ends. -/
def trim (text : List Char) : List Char :=
  ((text.dropWhile isBlank).reverse.dropWhile isBlank).reverse

end SmallLisp.Text
