import SmallLisp.StringLiteral
import SmallLisp.Value.Basic

/-!
The text of a value. Readable text quotes strings, so that a value made of literals can be read
back from it. Display text shows strings as they are. Callables have a text that cannot be read.
-/

namespace SmallLisp

inductive PrintMode where
  | readable
  | display
  deriving DecidableEq, Repr

namespace Value

mutual

def print (mode : PrintMode) : Value → String
  | .number n => n.toInt.repr
  | .string text =>
    match mode with
    | .readable => StringLiteral.write text
    | .display => text
  | .symbol s => s.name
  | .list items => "(" ++ " ".intercalate (printItems mode items) ++ ")"
  | .vector items => "[" ++ " ".intercalate (printItems mode items) ++ "]"
  | .map entries => "\x7b" ++ " ".intercalate (printEntries mode entries) ++ "\x7d"
  | .closure .. => "#<function>"
  | .builtin operation => "#<builtin:" ++ operation.name ++ ">"

def printItems (mode : PrintMode) : List Value → List String
  | [] => []
  | item :: items => item.print mode :: printItems mode items

def printEntries (mode : PrintMode) : List (Value × Value) → List String
  | [] => []
  | (key, value) :: entries => key.print mode :: value.print mode :: printEntries mode entries

end

def printJoined (mode : PrintMode) (separator : String) (values : List Value) : String :=
  separator.intercalate (values.map (print mode))

end Value

end SmallLisp
