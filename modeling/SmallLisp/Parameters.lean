import SmallLisp.Entries
import SmallLisp.Error
import SmallLisp.Value.Printer

/-!
Parameter lists of closures, and how arguments are bound to them.
-/

namespace SmallLisp.Parameters

/-- The symbols of a parameter list, all of whose items must be symbols. -/
def symbols : List Value → Except Error (List Symbol)
  | [] => .ok []
  | .symbol symbol :: rest => (symbols rest).map (symbol :: ·)
  | value :: _ =>
    .error (.type s!"fn* parameters must be symbols, got {value.print .readable}")

/-- The parameters that a list of symbols names. An ampersand must stand right before the last
symbol, which then names the rest. -/
def ofSymbols (symbols : List Symbol) : Except Error Parameters :=
  let fixed := symbols.takeWhile (· ≠ .ampersand)
  match symbols.dropWhile (· ≠ .ampersand) with
  | [] => .ok ⟨fixed, none⟩
  | [_, rest] => if rest ≠ .ampersand then .ok ⟨fixed, some rest⟩ else .error misplacedAmpersand
  | _ => .error misplacedAmpersand
where
  misplacedAmpersand : Error :=
    .evaluation ("invalid fn* arity definition: '&' must be followed by exactly one rest " ++
      "parameter at the end")

def ofItems (items : List Value) : Except Error Parameters := do
  ofSymbols (← symbols items)

/-- The bindings of a call. Of two parameters with one name the later one counts. -/
def bindings (parameters : Parameters) (arguments : List Value) : List (Symbol × Value) :=
  let rest := parameters.rest.toList.map fun name =>
    (name, .list (arguments.drop parameters.fixed.length))
  Entries.insertAll (parameters.fixed.zip arguments ++ rest) []

end SmallLisp.Parameters
