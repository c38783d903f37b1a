import SmallLisp.SpecialForm
import SmallLisp.Store
import SmallLisp.Text.Blank

/-!
Completion of the last word of a line to a bound name. A word that opens a list or a vector is
completed behind its bracket, where it may also become the name of a special form.
-/

namespace SmallLisp

/-- The names that can stand in place of the line's text from a byte offset on. -/
structure Completion where
  start : Nat
  names : List String
  deriving DecidableEq, Repr

namespace Completion

def isWordBreak (c : Char) : Bool :=
  Text.isBlank c || c = ',' || c = '\x7b' || c = '\x7d'

/-- Splits a line in front of its last word. -/
def splitLastWord (line : List Char) : List Char × List Char :=
  let word := (line.reverse.takeWhile (!isWordBreak ·)).reverse
  (line.take (line.length - word.length), word)

/-- Whether a word starts with an opening bracket that may be followed by the name of a special
form. -/
def opensForm : List Char → Bool
  | '(' :: _ | '[' :: _ => true
  | _ => false

def candidates (names : List String) (stem : List Char) : List String :=
  names.filter fun name => stem.isPrefixOf name.toList

/-- Completes the last word of a line, given the bound names. -/
def ofNames (names : List String) (line : List Char) : Completion :=
  let (before, word) := splitLastWord line
  let start := (String.ofList before).utf8ByteSize
  if opensForm word then
    let forms := SpecialForm.all.map SpecialForm.name
    ⟨start + 1, candidates (Names.ofList (names ++ forms)) word.tail⟩
  else if word.isEmpty then
    ⟨start, []⟩
  else
    ⟨start, candidates names word⟩

end Completion

def complete (store : Store) (frame : FrameId) (line : String) : Completion :=
  Completion.ofNames (store.names frame) line.toList

end SmallLisp
