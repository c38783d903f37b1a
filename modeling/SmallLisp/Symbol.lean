/-!
Symbols. A symbol is its name: two occurrences of one spelling are one symbol.
-/

namespace SmallLisp

structure Symbol where
  name : String
  deriving DecidableEq, Repr, Inhabited

namespace Symbol

def nil : Symbol := ⟨"nil"⟩

def ofBool : Bool → Symbol
  | true => ⟨"true"⟩
  | false => ⟨"false"⟩

/-- Marks the rest parameter in a parameter list. -/
def ampersand : Symbol := ⟨"&"⟩

/-- Keywords are the symbols whose name starts with a colon. -/
def isKeyword (symbol : Symbol) : Bool :=
  symbol.name.toList.head? = some ':'

/-- Constants stand for themselves. No binding can change what they mean. -/
def isConstant (symbol : Symbol) : Bool :=
  symbol = nil || symbol = ofBool true || symbol = ofBool false || symbol.isKeyword

end Symbol

end SmallLisp
