import SmallLisp.Symbol

/-!
The special forms: lists whose head is one of five names receive their arguments unevaluated. The
names are reserved in head position only, and no binding can take them over there.
-/

namespace SmallLisp

inductive SpecialForm where
  /-- Defines names in the nearest frame that is not local. -/
  | define
  /-- Binds names one after the other in a local frame. -/
  | bindLocally
  /-- Evaluates expressions in order. -/
  | sequence
  /-- Chooses among branches. -/
  | choose
  /-- Makes a closure. -/
  | function
  deriving DecidableEq, Repr

namespace SpecialForm

def all : List SpecialForm := [define, bindLocally, sequence, choose, function]

def name : SpecialForm → String
  | define => "def!"
  | bindLocally => "let*"
  | sequence => "do"
  | choose => "if"
  | function => "fn*"

/-- A pattern of the well-formed uses, shown to whoever misuses the form. -/
def shape : SpecialForm → String
  | define => "(def! name value ...)"
  | bindLocally => "(let* [name value ...] body ...)"
  | sequence => "(do expr ...)"
  | choose => "(if cond then ... [else])"
  | function => "(fn* [param ... [& rest]] body ...)"

def ofSymbol? (symbol : Symbol) : Option SpecialForm :=
  all.find? (·.name = symbol.name)

theorem ofSymbol?_eq_some_iff {symbol : Symbol} {form : SpecialForm} :
    ofSymbol? symbol = some form ↔ symbol.name = form.name := by
  constructor
  · intro hfound
    simpa [eq_comm] using List.find?_some hfound
  · intro hname
    rw [ofSymbol?, hname]
    cases form <;> rfl

end SpecialForm

end SmallLisp
