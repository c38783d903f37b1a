import SmallLisp.Text.Quoted
import SmallLisp.Value.Basic

/-!
The inspection text of a value, which names the kind of every part. It leaves out the frame that a
closure remembers, since that frame usually holds the closure itself.
-/

namespace SmallLisp

def Symbol.inspect (symbol : Symbol) : String :=
  "Symbol(" ++ symbol.name ++ ")"

/-- A sequence of texts between brackets. -/
private def bracketed (texts : List String) : String :=
  "[" ++ ", ".intercalate texts ++ "]"

def Parameters.inspect (parameters : Parameters) : String :=
  "params: " ++ bracketed (parameters.fixed.map Symbol.inspect) ++ ", rest: " ++
    match parameters.rest with
    | none => "None"
    | some name => "Some(" ++ name.inspect ++ ")"

namespace Value

mutual

def inspect : Value → String
  | .number n => "Number(" ++ n.toInt.repr ++ ")"
  | .string text => "String(" ++ Text.quoted text ++ ")"
  | .symbol s => s.inspect
  | .list items => "List(" ++ bracketed (inspectItems items) ++ ")"
  | .vector items => "Vector(" ++ bracketed (inspectItems items) ++ ")"
  | .map entries => "\x7b" ++ ", ".intercalate (inspectEntries entries) ++ "\x7d"
  | .closure _ parameters body _ =>
    "Closure \x7b " ++ parameters.inspect ++
      ", body: " ++ bracketed (inspectItems body) ++ ", .. \x7d"
  | .builtin operation => "BuiltinFn(" ++ operation.name ++ ")"

def inspectItems : List Value → List String
  | [] => []
  | item :: items => item.inspect :: inspectItems items

def inspectEntries : List (Value × Value) → List String
  | [] => []
  | (key, value) :: entries => (key.inspect ++ ": " ++ value.inspect) :: inspectEntries entries

end

end Value

end SmallLisp
