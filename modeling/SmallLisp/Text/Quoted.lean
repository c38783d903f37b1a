import SmallLisp.Text.DefaultIgnorable
import SmallLisp.Text.GraphemeExtend
import SmallLisp.Text.Unprintable

/-!
Quoted text: a text between quotes in which every character can be told apart by eye. It shows a
string or a single character inside a diagnostic; a program's own string literals are written by
`StringLiteral.write`.
-/

namespace SmallLisp.Text

/-- A character spelled by its code point, in lower case hexadecimal without leading zeros. -/
def codePointEscape (c : Char) : String :=
  "\\u\x7b" ++ String.ofList (Nat.toDigits 16 c.toNat) ++ "\x7d"

/-- The halfwidth voiced and semi-voiced sound marks of katakana. They extend a grapheme, as their
combining forms do, and yet each fills a cell of its own. -/
def isHalfwidthSoundMark (c : Char) : Bool :=
  c == '\uff9e' || c == '\uff9f'

/-- A character that is drawn over the one before it. -/
def isMerging (c : Char) : Bool :=
  isGraphemeExtend c && !isHalfwidthSoundMark c

/-- A character that leaves nothing to see, or nothing to tell it from a plain space. -/
def isHidden (c : Char) : Bool :=
  isUnprintable c || isDefaultIgnorable c

/-- A character between two quotes of a kind. One that would not be seen, or that would merge with
the one before it, is spelled by its code point. Four of the controls have names of their own, and
the quote and the backslash are marked by a backslash. -/
def quotedChar (quote c : Char) : String :=
  match c with
  | '\\' => "\\\\"
  | '\n' => "\\n"
  | '\r' => "\\r"
  | '\t' => "\\t"
  | '\x00' => "\\0"
  | c =>
    if c = quote then "\\" ++ c.toString
    else if isMerging c || isHidden c then codePointEscape c
    else c.toString

def quoted (text : String) : String :=
  "\"" ++ String.join (text.toList.map (quotedChar '"')) ++ "\""

/-- A single character, between quotes of its own. -/
def quotedAlone (c : Char) : String :=
  "'" ++ quotedChar '\'' c ++ "'"

end SmallLisp.Text
